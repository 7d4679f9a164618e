import ZkCppClient.Watch.Once

/-!
# From arming to storing

A registration arms its watch at the server and stores its data only when it has
its answer, and in between an event of the watch finds a path that is not
registered. The watch stays permanent as long as no event and no
re-registration is dropped: for want of the connection, or because a
registration has still to store its data.
-/

namespace ZkCppClient.Watch

/-- What the second thread works on, but for a registration that it has only to store. -/
def SecondPc.rearming : SecondPc → SecondPc
  | .returned _ _ _ true => .idle
  | pc => pc

def SecondPc.unstored (k : Kind) (p : Path) : SecondPc → Prop
  | .returned k' _ data true => k' = k ∧ data.path = p
  | _ => False

instance (k : Kind) (p : Path) : ∀ pc, Decidable (SecondPc.unstored k p pc)
  | .returned _ _ _ true => inferInstanceAs (Decidable (_ ∧ _))
  | .returned _ _ _ false | .idle | .autoReg _ _ | .lookup _ _ | .reg _ _ _ | .blocked _ _ _ | .reconnecting | .leaving =>
    inferInstanceAs (Decidable False)

def Answered (k : Kind) (p : Path) (s : St) : Prop := (∃ r ∈ s.replied, r.1.on k p ∧ r.2 = true) ∨ s.second.unstored k p

instance (k : Kind) (p : Path) (s : St) : Decidable (Answered k p s) := inferInstanceAs (Decidable (_ ∨ _))

/-- No re-registration of the path returns for want of the connection while the
path is registered or about to be, nor for want of its data while a registration
has still to store it. -/
def NoneDropped (k : Kind) (p : Path) (s : St) : SecondPc → Prop
  | .autoReg k' p' => k' = k → p' = p → s.isConnected = true ∨ s.datas k p = none ∧ ¬ Answered k p s
  | .lookup k' p' => k' = k → p' = p → s.datas k p ≠ none ∨ ¬ Answered k p s
  | _ => True

instance (k : Kind) (p : Path) (s : St) : (pc : SecondPc) → Decidable (NoneDropped k p s pc)
  | .autoReg _ _ | .lookup _ _ => inferInstanceAs (Decidable (_ → _ → _ ∨ _))
  | .idle | .reg _ _ _ | .blocked _ _ _ | .returned _ _ _ _ | .reconnecting | .leaving => inferInstanceAs (Decidable True)

/-- No re-registration of the path is dropped, and while a registration has
still to store its data, no event finds the path not registered. -/
def NothingDropped (k : Kind) (p : Path) (s : St) : Act → Prop
  | .second => NoneDropped k p s s.second
  | .deliver zh => ∀ item ∈ (s.conns zh).inbox.head?, item.isEvent k p → s.datas k p ≠ none ∨ ¬ Answered k p s
  | _ => True

instance (k : Kind) (p : Path) (s : St) : (a : Act) → Decidable (NothingDropped k p s a)
  | .second => inferInstanceAs (Decidable (NoneDropped k p s s.second))
  | .deliver zh => inferInstanceAs (Decidable (∀ item ∈ (s.conns zh).inbox.head?, item.isEvent k p → _ ∨ _))
  | .foreign _ | .serve _ | .fail _ _ | .session _ _ _ | .dispatch _ _ | .timer _ | .reg _ _ _ _ | .regReturn _
  | .cancel _ _ | .expire | .retry _ => inferInstanceAs (Decidable True)

/-- As `Covered`, without the registration that has only to be stored. -/
def Held (k : Kind) (p : Path) (s : St) : Prop := Covered k p { s with second := s.second.rearming }

structure StoringInv (k : Kind) (p : Path) (s : St) : Prop where
  handles : HandlesInv s
  held : Answered k p s → Held k p s

section
variable {k : Kind} {p : Path} {s t : St} {zh : Nat} {c : Conn}

theorem rearming_path {pc : SecondPc} (h : pc.rearming.path = some (k, p)) : pc.path = some (k, p) := by
  unfold SecondPc.rearming at h
  split at h
  · cases h
  · exact h

theorem Held.covered (h : Held k p s) : Covered k p s :=
  covered_mono h (Nat.le_refl _) (fun _ => id) (fun _ => id) rearming_path (fun _ => id)

theorem Held.mono (h : Held k p s) (hmade : s.made ≤ t.made)
    (hconns : ∀ z, (s.conns z).Covers k p → (t.conns z).Covers k p) (hfuns : ∀ e ∈ s.funs, e ∈ t.funs)
    (hsecond : s.second.rearming.path = some (k, p) → t.second.rearming.path = some (k, p))
    (htimers : ∀ e ∈ s.timers, e ∈ t.timers) : Held k p t := covered_mono h hmade hconns hfuns hsecond htimers

theorem Held.setConn (h : Held k p s) (zh : Nat) (hc : (s.conns zh).Covers k p → c.Covers k p) :
    Held k p (s.setConn zh c) := covered_setConn h zh hc

/-! ## Answers -/

theorem rearming_reply_false (pc : SecondPc) : (pc.reply false).rearming = pc.rearming.reply false := by
  cases pc with
  | returned _ _ _ ok => cases ok <;> rfl
  | _ => rfl

theorem path_rearming_reply (pc : SecondPc) : (pc.reply false).rearming.path = pc.rearming.path := by
  rw [rearming_reply_false]
  cases pc.rearming <;> rfl

theorem unstored_reply_false {pc : SecondPc} (h : (pc.reply false).unstored k p) : pc.unstored k p := by
  cases pc with
  | blocked _ _ _ => exact h.elim
  | _ => exact h

theorem answered_of (hreplied : ∀ r ∈ t.replied, r.2 = true → r ∈ s.replied)
    (hsecond : t.second.unstored k p → s.second.unstored k p) (h : Answered k p t) : Answered k p s := by
  rcases h with ⟨r, hr, hon, hok⟩ | h
  · exact .inl ⟨r, hreplied r hr hok, hon, hok⟩
  · exact .inr (hsecond h)

theorem answered_same (h : Answered k p t) {pc : SecondPc} (hpc : t.second = pc) (hno : ¬ pc.unstored k p)
    (hreplied : t.replied = s.replied) : Answered k p s := by
  subst hpc
  exact answered_of (fun r hr _ => hreplied ▸ hr) (fun hs => absurd hs hno) h

theorem answered_refused {ctx : WatchContext} {auto : Bool} (h : Answered k p (s.reply ctx auto false)) :
    Answered k p s := by
  refine answered_of (fun r hr hok => ?_) (fun hs => ?_) h
  · unfold St.reply at hr
    cases auto with
    | true => exact hr
    | false =>
      rcases List.mem_append.mp hr with hr | hr
      · exact hr
      · cases List.mem_singleton.mp hr; cases hok
  · unfold St.reply at hs
    cases auto with
    | true => exact unstored_reply_false hs
    | false => exact hs

theorem Held.refused (h : Held k p s) (ctx : WatchContext) (auto : Bool) : Held k p (s.reply ctx auto false) := by
  refine h.mono (Nat.le_refl _) (fun _ => id) (fun _ => id) (fun hp => ?_) (fun _ => id)
  unfold St.reply
  cases auto with
  | true => exact (path_rearming_reply s.second).trans hp
  | false => exact hp

theorem storingInv_armed (hi : StoringInv k p s) (hz : zh < s.made) {ctx : WatchContext} {auto : Bool}
    {outbox : List Request} (ho : (s.conns zh).outbox = .watch ctx auto :: outbox)
    (ha : Answered k p (((s.setConn zh { s.conns zh with outbox }).arm zh ctx).reply ctx auto true)) :
    Held k p (((s.setConn zh { s.conns zh with outbox }).arm zh ctx).reply ctx auto true) := by
  have hconns := arm_conns s zh ctx outbox
  by_cases hon : ctx.on k p
  · refine .inl ⟨zh, hz, .inl ⟨⟨ctx, s.zxid, (s.nodes ctx.path).isSome⟩, ?_, hon⟩⟩
    show _ ∈ (((s.setConn zh { s.conns zh with outbox }).arm zh ctx).conns zh).armed
    rw [hconns, setConn_self]
    exact List.mem_append_right _ List.mem_cons_self
  · have hother : Answered k p s ∧ (s.second.rearming.path = some (k, p) →
        (if auto = true then s.second.reply true else s.second).rearming.path = some (k, p)) := by
      cases auto with
      | false =>
        refine ⟨?_, id⟩
        rcases ha with ⟨r, hr, hron, hok⟩ | ha
        · rcases List.mem_append.mp hr with hr | hr
          · exact .inl ⟨r, hr, hron, hok⟩
          · cases List.mem_singleton.mp hr; exact absurd hron hon
        · exact .inr ha
      | true =>
        have hmem : ctx ∈ (s.conns zh).outbox.filterMap Request.auto? := by rw [ho]; exact List.mem_cons_self
        obtain ⟨-, k', p', data, hs, rfl, hpath⟩ := blocked_of_outbox hi.handles hmem
        refine ⟨?_, fun hp => ?_⟩
        · rcases ha with ha | ha
          · exact .inl ha
          · have hstoring : (s.second.reply true).unstored k p := ha
            rw [hs] at hstoring
            exact absurd hstoring hon
        · rw [hs] at hp
          cases hp
          exact absurd ⟨rfl, hpath⟩ hon
    refine (hi.held hother.1).mono (Nat.le_refl _) (fun z hc => ?_) (fun _ => id) hother.2 (fun _ => id)
    show (((s.setConn zh { s.conns zh with outbox }).arm zh ctx).conns z).Covers k p
    rw [hconns]
    by_cases hzh : z = zh
    · subst hzh
      rw [setConn_self]
      exact covers_more hc (fun _ => List.mem_append_left _) (fun _ => id)
    · rwa [setConn_of_ne s zh _ hzh]

theorem answered_session {state : SessState} {watchersFirst : Bool} (h : Answered k p (s.session zh state watchersFirst)) :
    Answered k p s := by
  unfold St.session at h
  dsimp only at h
  split at h
  · exact h
  · refine answered_of (fun r hr hok => ?_) (fun hs => ?_) h
    · rcases List.mem_append.mp hr with hr | hr
      · exact hr
      · obtain ⟨ctx, -, rfl⟩ := List.mem_map.mp hr
        cases hok
    · change SecondPc.unstored k p (if _ then _ else _) at hs
      split at hs
      · exact unstored_reply_false hs
      · exact hs

theorem Held.session (h : Held k p s) (zh : Nat) (state : SessState) (watchersFirst : Bool) :
    Held k p (s.session zh state watchersFirst) := by
  have hc := covered_session h zh state watchersFirst
  unfold St.session at hc ⊢
  dsimp only at hc ⊢
  by_cases hstate : state = .connected
  · rw [if_pos hstate] at hc ⊢
    exact hc
  · rw [if_neg hstate] at hc ⊢
    refine covered_mono hc (Nat.le_refl _) (fun _ => id) (fun _ => id) (fun hp => ?_) (fun _ => id)
    change (if _ then _ else _ : SecondPc).path = _ at hp
    show (if _ then _ else _ : SecondPc).rearming.path = _
    split at hp
    · rename_i hany
      rw [if_pos hany, rearming_reply_false]
      exact hp
    · rename_i hany
      rw [if_neg hany]
      exact hp

theorem Held.foreign (h : Held k p s) (w : Write) (nodes : Tree) : Held k p (s.foreign w nodes) :=
  covered_foreign h w nodes

/-! ## All steps -/

theorem held_event (hi : StoringInv k p s) {ctx : WatchContext} {type : EventType} {zxid : Nat} {inbox : List Item}
    {handling : Option Handling} (hin : (s.conns zh).inbox = .event ctx type zxid :: inbox)
    (hg : NothingDropped k p s (.deliver zh)) (ha : Answered k p s) :
    Held k p ((s.setConn zh { s.conns zh with inbox, handling }).queueAutoReg ctx) := by
  have hmem : Item.event ctx type zxid ∈ (s.conns zh).inbox.head? := by rw [hin]; rfl
  have hqueued : s.datas k p ≠ none ∨ ¬ (Item.event ctx type zxid).isEvent k p := by
    by_cases hev : (Item.event ctx type zxid).isEvent k p
    · exact .inl ((hg _ hmem hev).resolve_right fun hno => hno ha)
    · exact .inr hev
  rcases hqueued with hd | hother
  · have hold : Permanent k p { s with second := s.second.rearming } := fun _ => hi.held ha
    exact permanent_event hold hin hd
  · have hrest : Held k p (s.setConn zh { s.conns zh with inbox, handling }) :=
      (hi.held ha).setConn zh fun hc => covers_tail hc hin hother rfl rfl
    refine hrest.mono (Nat.le_refl _) (fun _ => id) (fun e he => ?_) id (fun _ => id)
    show e ∈ if _ then _ else _
    split
    · exact List.mem_append_left _ he
    · exact he

theorem held_step {a : Act} (hi : StoringInv k p s) (hg : NothingDropped k p s a) (hstep : step s a = some t)
    (ha : Answered k p t) : Held k p t := by
  cases step_inv hstep with
  | @foreign w nodes _ => exact (hi.held ha).foreign w nodes
  | armed hz ho _ => exact storingInv_armed hi hz ho ha
  | @refused zh ctx auto outbox _ _ | @failWatch zh _ ctx auto outbox _ _ =>
    refine Held.refused ((hi.held (answered_refused ha)).setConn zh fun hc => ?_) ctx auto
    exact covers_more hc (fun _ => id) (fun _ => id)
  | @read zh _ _ _ _ | @failRead zh _ _ _ _ _ _ =>
    exact (hi.held ha).setConn zh fun hc => covers_more hc (fun _ => id) fun _ => List.mem_append_left _
  | @session zh state watchersFirst _ _ => exact (hi.held (answered_session ha)).session zh state watchersFirst
  | @sessionWatcher zh _ inbox _ hin | @fetched zh _ _ inbox _ _ _ hin _ _ _ =>
    exact (hi.held ha).setConn zh fun hc => covers_tail hc hin id rfl rfl
  | @event zh ctx type zxid inbox _ _ hin =>
    exact held_event hi hin hg ha
  | @told zh _ _ _ _ _ _ _ _ | @nothing zh _ _ _ _ _ _ =>
    exact (hi.held ha).setConn zh fun hc => covers_more hc (fun _ => id) (fun _ => id)
  | @fetch zh _ _ _ _ _ _ _ _ =>
    have hidle := (hi.held ha).setConn zh (c := { s.conns zh with handling := none })
      fun hc => covers_more hc (fun _ => id) (fun _ => id)
    exact hidle.setConn zh fun hc => covers_more hc (fun _ => id) (fun _ => id)
  | take hs hf =>
    exact covered_take (hi.held (answered_same ha rfl id rfl)) (by rw [hs]; rfl) hf
  | connected hs _ | found hs _ _ =>
    refine (hi.held (answered_same ha rfl id rfl)).mono (Nat.le_refl _) (fun _ => id) (fun _ => id) ?_ (fun _ => id)
    rw [hs]
    exact id
  | @notConnected k' p' hs hc =>
    have hold : Answered k p s := answered_same ha rfl id rfl
    simp only [NothingDropped, NoneDropped, hs] at hg
    refine (hi.held hold).mono (Nat.le_refl _) (fun _ => id) (fun _ => id) (fun hpath => ?_) (fun _ => id)
    rw [hs] at hpath
    cases hpath
    rcases hg rfl rfl with hconnected | ⟨-, hno⟩
    · rw [hc] at hconnected; cases hconnected
    · exact absurd hold hno
  | @notFound k' p' hs hnone =>
    have hold : Answered k p s := answered_same ha rfl id rfl
    simp only [NothingDropped, NoneDropped, hs] at hg
    refine (hi.held hold).mono (Nat.le_refl _) (fun _ => id) (fun _ => id) (fun hpath => ?_) (fun _ => id)
    rw [hs] at hpath
    cases hpath
    rcases hg rfl rfl with hd | hno
    · obtain ⟨data, hdata⟩ := Option.ne_none_iff_exists'.mp hd
      have hauto := (hi.handles.stored.datas k p data hdata).2
      rw [hnone data hdata] at hauto
      cases hauto
    · exact absurd hold hno
  | @autoSent k' p' data zh hs _ _ =>
    have hsent := (hi.held (answered_same ha rfl id rfl)).setConn zh (c := { s.conns zh with
      outbox := (s.conns zh).outbox ++ [.watch (data.toContext k') true] })
      fun hc => covers_more hc (fun _ => id) (fun _ => id)
    refine hsent.mono (Nat.le_refl _) (fun _ => id) (fun _ => id) (fun hpath => ?_) (fun _ => id)
    change s.second.rearming.path = _ at hpath
    rw [hs] at hpath
    exact hpath
  | autoFailed hs | autoLost hs =>
    exact covered_failed (hi.held (answered_same ha rfl id rfl)) (by rw [hs]; rfl)
  | @autoStored k' p' data hs =>
    -- the registration that is stored was no part of what holds the path
    refine (hi.held (answered_same ha rfl id rfl)).mono (Nat.le_refl _) (fun _ => id) (fun _ => id) ?_ (fun _ => id)
    rw [hs]
    exact id
  | waited hs _ | left hs =>
    refine (hi.held (answered_same ha rfl id rfl)).mono (Nat.le_refl _) (fun _ => id) (fun _ => id) ?_ (fun _ => id)
    rw [hs]
    intro h
    cases h
  | timer hs ht => exact covered_timer (hi.held (answered_same ha rfl id rfl)) (by rw [hs]; rfl) ht
  | regRefused => exact hi.held ha
  | @regSent _ _ _ _ zh _ _ =>
    exact (hi.held ha).setConn zh fun hc => covers_more hc (fun _ => id) (fun _ => id)
  | @regStored i ctx hr | @regFailed i ctx hr =>
    refine hi.held (answered_of ?_ (fun h => ?_) ha)
    · exact fun r hr _ => List.mem_of_mem_eraseIdx hr
    · exact h
  | cancel k' p' => exact hi.held ha
  | retried hs =>
    refine (hi.held (answered_same ha rfl id rfl)).mono (Nat.le_succ _) (fun _ => id) (fun _ => id) ?_ (fun _ => id)
    rw [hs]
    intro h
    cases h
  | expire | retryFailed _ => exact hi.held ha

theorem storingInv_step {a : Act} (hi : StoringInv k p s) (hg : NothingDropped k p s a) (hstep : step s a = some t) :
    StoringInv k p t := ⟨handlesInv_step hi.handles hstep, held_step hi hg hstep⟩

theorem storingInv_initial (nodes : Tree) : StoringInv k p (St.initial nodes) where
  handles := handlesInv_initial nodes
  held h := by
    rcases h with ⟨_, hr, -⟩ | h
    · cases hr
    · exact h.elim

theorem chainKept_of_nothingDropped {a : Act} (hi : StoringInv k p s) (hg : NothingDropped k p s a) :
    ChainKept k p s a := by
  unfold ChainKept
  split
  · split
    · rename_i k' p' hs
      simp only [NothingDropped, NoneDropped, hs] at hg
      intro hk hp hc hd
      rcases hg hk hp with hconnected | ⟨hnone, -⟩
      · rw [hc] at hconnected; cases hconnected
      · exact absurd hnone hd
    · rename_i k' p' data hs
      intro hk hp
      have hstoring : s.second.unstored k p := by rw [hs]; exact ⟨hk, hp⟩
      have hheld := hi.held (.inr hstoring)
      unfold Held at hheld
      rwa [hs] at hheld
    · trivial
  · intro r hr hon hok
    exact (hi.held (.inl ⟨r, List.mem_of_getElem? hr, hon, hok⟩)).covered
  · trivial

/-- **Permanence.** In every run, with disconnections, expiry and new handles at
any point, in which nothing of the path is dropped: the registered path has
something that will arm its watch in every state. -/
theorem permanent_of_nothingDropped {nodes : Tree} {acts : List Act}
    (hrun : Lts.run step (St.initial nodes) acts = some s)
    (hkept : Lts.Along step (NothingDropped k p) (St.initial nodes) acts) :
    Lts.Throughout step (Permanent k p) (St.initial nodes) acts := by
  refine (permanent_iff hrun).mpr ?_
  exact Lts.along_of_along (fun _ _ _ hi hg h => storingInv_step hi hg h)
    (fun _ _ hi hg => chainKept_of_nothingDropped hi hg) (storingInv_initial nodes) hkept

end

/-- The connection is lost and found again between an event and its re-registration, and the next event comes before
that one has stored its data. -/
def rearmedLate : List Act :=
  registered ++ setNode ++ [.session 0 .connecting false, .session 0 .connected false, .deliver 0, .deliver 0, .deliver 0] ++
    autoRegSent ++ [.serve 0] ++ setNode ++ [.second]

theorem permanent_rearmedLate : Lts.Throughout step (Permanent .node ["a"]) (St.initial oneNode) rearmedLate :=
  permanent_of_nothingDropped (s := (Lts.run step (St.initial oneNode) rearmedLate).get (by decide))
    (by simp) (by decide)

end ZkCppClient.Watch
