import ZkCppClient.Watch.Machine

/-!
# The cached value of a watch

`getNodeDataOnWatcher` and `getChildDataOnWatcher` update a copy of the stored
entry, tell the user and drop the copy. What is stored is what a registration
has stored, without a value, a version or a child list.
-/

namespace ZkCppClient.Watch

/-- The last notification of the path, while it stays registered. -/
def lastTold (k : Kind) (p : Path) (told : Option Notification) (s : St) (a : Act) : Option Notification :=
  match step s a with
  | some t =>
    if t.isShouldNotify k p then ((t.log.drop s.log.length).filter (·.ctx.on k p)).getLast?.or told else none
  | none => told

def telling (k : Kind) (p : Path) : St × Option Notification → Act → Option (St × Option Notification) :=
  Lts.withHistory step (lastTold k p)

def WatchData.Shows (data : WatchData) (n : Notification) : Kind → Prop
  | .node => data.value = n.value ∧ data.version = n.version
  | .child => data.childList = n.childNodes

instance decidableShows (data : WatchData) (n : Notification) : ∀ k, Decidable (data.Shows n k)
  | .node => inferInstanceAs (Decidable (_ ∧ _))
  | .child => inferInstanceAs (Decidable (_ = _))

def CacheFollows (k : Kind) (p : Path) (x : St × Option Notification) : Prop :=
  ∀ n ∈ x.2, carries k n.type = true → ∃ data ∈ x.1.datas k p, data.Shows n k

instance decidableCacheFollows (k : Kind) (p : Path) (x : St × Option Notification) : Decidable (CacheFollows k p x) :=
  inferInstanceAs (Decidable (∀ n ∈ x.2, carries k n.type = true → ∃ data ∈ x.1.datas k p, data.Shows n k))

/-- What a fetch has returned is what the entry has had from the registration. -/
def Fetched.initial : Fetched → Bool
  | .data (some value) version => value = "" ∧ version = kInvalidDataVersion
  | .childNodes strings => strings = []
  | _ => true

def Conn.fetching (c : Conn) : Option (ContextInWatcher × Fetched) :=
  match c.handling, c.inbox with
  | none, .fetched d result :: _ => some (d, result)
  | _, _ => none

def FetchesInitial (k : Kind) (p : Path) (x : St × Option Notification) : Act → Prop
  | .deliver zh => ∀ f ∈ (x.1.conns zh).fetching, f.1.ctx.on k p → x.1.isShouldNotify k p = true → f.2.initial = true
  | _ => True

instance decidableFetchesInitial (k : Kind) (p : Path) (x : St × Option Notification) :
    ∀ a, Decidable (FetchesInitial k p x a)
  | .deliver _ => inferInstanceAs (Decidable (∀ _ ∈ _, _))
  | .foreign _ | .serve _ | .fail _ _ | .session _ _ _ | .dispatch _ _ | .second | .timer _ | .reg _ _ _ _
  | .regReturn _ | .cancel _ _ | .expire | .retry _ => isTrue trivial

/-! ## The entries -/

structure WatchData.Initial (data : WatchData) : Prop where
  value : data.value = ""
  version : data.version = kInvalidDataVersion
  childList : data.childList = []

section
variable {k : Kind} {p : Path} {s t : St} {a : Act}

def EntryInitial (k : Kind) (p : Path) (s : St) : Prop := ∀ data ∈ s.datas k p, data.Initial

theorem entryInitial_setWatchData (hi : EntryInitial k p s) (k' : Kind) (path : Path) {data : Option WatchData}
    (hdata : ∀ d ∈ data, d.Initial) : EntryInitial k p (s.setWatchData k' path data) := by
  intro d hd
  simp only [St.setWatchData] at hd
  split at hd
  · exact hdata d hd
  · exact hi d hd

theorem initial_ofContext (ctx : WatchContext) : ∀ d ∈ some (WatchData.ofContext ctx), d.Initial := by
  intro d hd
  cases hd
  exact ⟨rfl, rfl, rfl⟩

theorem entryInitial_step (hi : EntryInitial k p s) (h : step s a = some t) : EntryInitial k p t := by
  cases step_inv h with
  | @session zh state watchersFirst _ _ =>
    intro data hd
    rw [session_datas] at hd
    exact hi data hd
  | @autoStored k' _ data _ => exact entryInitial_setWatchData hi k' data.path (initial_ofContext (data.toContext k'))
  | @regStored i ctx _ =>
    exact entryInitial_setWatchData (s := { s with replied := s.replied.eraseIdx i }) hi _ _ (initial_ofContext ctx)
  | cancel k' p' => exact entryInitial_setWatchData hi k' p' nofun
  | regRefused => exact hi
  | _ => exact hi

/-! ## The notifications -/

def Notification.Blank (n : Notification) : Kind → Prop
  | .node => n.value = "" ∧ n.version = kInvalidDataVersion
  | .child => n.childNodes = []

def Notification.Plain (n : Notification) (k : Kind) : Prop := carries k n.type = true → n.Blank k

theorem WatchData.Initial.shows_iff {data : WatchData} (hd : data.Initial) {n : Notification} :
    data.Shows n k ↔ n.Blank k := by
  cases k with
  | node =>
    show (data.value = n.value ∧ data.version = n.version) ↔ (n.value = "" ∧ n.version = kInvalidDataVersion)
    rw [hd.value, hd.version, eq_comm, @eq_comm _ kInvalidDataVersion]
  | child =>
    show data.childList = n.childNodes ↔ n.childNodes = []
    rw [hd.childList, eq_comm]

theorem plain_iff {n : Notification} (hc : carries k n.type = true) : n.Plain k ↔ n.Blank k := forall_prop_of_true hc

theorem plain_of_not_carries {n : Notification} (hc : carries k n.type = false) : n.Plain k := fun h => by
  rw [hc] at h
  cases h

theorem notify_of_registered (n : Notification) (hreg : s.isShouldNotify n.ctx.kind n.ctx.path = true) :
    s.notify n = { s with log := s.log ++ [n] } := by rw [St.notify, if_pos hreg]

theorem fetched_told {d : ContextInWatcher} {result : Fetched} (h : s.fetched d result = some t)
    (hreg : s.isShouldNotify d.ctx.kind d.ctx.path = true) : ∃ n : Notification, t = { s with log := s.log ++ [n] } ∧
      n.ctx = d.ctx ∧ (n.Plain d.ctx.kind ↔ result.initial = true) := by
  have hgiven : ∀ n : Notification, n.ctx = d.ctx → s.notify n = t → (n.Plain d.ctx.kind ↔ result.initial = true) →
      ∃ n : Notification, t = { s with log := s.log ++ [n] } ∧ n.ctx = d.ctx ∧
        (n.Plain d.ctx.kind ↔ result.initial = true) := fun n hctx ht hplain =>
    ⟨n, by rw [← ht, notify_of_registered n (by rwa [hctx])], hctx, hplain⟩
  have hc := d.carried
  unfold St.fetched at h
  split at h
  · rename_i hk
    unfold getNodeDataOnWatcher at h
    split at h
    · refine hgiven _ rfl (Option.some.inj h) ?_
      rw [plain_iff hc, hk]
      simp [Notification.Blank, Fetched.initial]
    · rw [if_pos hreg] at h
      cases h
    · split at h
      · cases h
      · split at h
        · exact hgiven _ rfl (Option.some.inj h) (iff_of_true (plain_of_not_carries (by rw [hk]; rfl)) rfl)
        · exact hgiven _ rfl (Option.some.inj h) (iff_of_true (plain_of_not_carries (by rw [hk]; rfl)) rfl)
    · cases h
  · rename_i hk
    unfold getChildDataOnWatcher at h
    split at h
    · refine hgiven _ rfl (Option.some.inj h) ?_
      rw [plain_iff hc, hk]
      simp [Notification.Blank, Fetched.initial]
    · split at h
      · cases h
      · split at h
        · exact hgiven _ rfl (Option.some.inj h) (iff_of_true (plain_of_not_carries (by rw [hk]; rfl)) rfl)
        · exact hgiven _ rfl (Option.some.inj h) (iff_of_true (plain_of_not_carries (by rw [hk]; rfl)) rfl)
    · cases h

theorem notify_of_unregistered (n : Notification) (hno : s.isShouldNotify n.ctx.kind n.ctx.path = false) :
    s.notify n = s := by
  rw [St.notify, hno]
  rfl

theorem fetched_untold {d : ContextInWatcher} {result : Fetched} (h : s.fetched d result = some t)
    (hno : s.isShouldNotify d.ctx.kind d.ctx.path = false) : t = s := by
  obtain ⟨n, rfl, hctx, -, -⟩ := fetched_eq h
  exact notify_of_unregistered n (by rwa [hctx])

theorem notify_plain (n : Notification) (hlog : t.log = s.log) (hplain : ∀ k, carries k n.type = false) :
    ∃ ns, (t.notify n).log = s.log ++ ns ∧ ∀ m ∈ ns, ∀ k, m.Plain k := by
  unfold St.notify
  dsimp only
  rw [hlog]
  split
  · refine ⟨[n], rfl, fun m hm k => ?_⟩
    rw [List.mem_singleton.mp hm]
    exact plain_of_not_carries (hplain k)
  · exact ⟨[], (List.append_nil _).symm, nofun⟩

theorem quiet_log (hlog : t.log = s.log) : ∃ ns, t.log = s.log ++ ns ∧ ∀ m ∈ ns, ∀ k, m.Plain k :=
  ⟨[], hlog.trans (List.append_nil _).symm, nofun⟩

theorem dispatch_plain {zh : Nat} {accepted : Bool} (h : s.dispatch zh accepted = some t) :
    ∃ ns, t.log = s.log ++ ns ∧ ∀ m ∈ ns, ∀ k, m.Plain k := by
  obtain ⟨c, hh, rfl⟩ := Option.map_eq_some_iff.mp h
  dsimp only
  split
  · unfold existWatcher
    split
    · exact notify_plain _ rfl (by rintro (_ | _) <;> rfl)
    · exact notify_plain _ rfl (by rintro (_ | _) <;> rfl)
    · split
      · exact quiet_log rfl
      · exact notify_plain _ rfl (by rintro (_ | _) <;> rfl)
    · split
      · exact quiet_log rfl
      · exact notify_plain _ rfl (by rintro (_ | _) <;> rfl)
    · exact quiet_log rfl
  · unfold getChildrenWatcher
    split
    · exact notify_plain _ rfl (by rintro (_ | _) <;> rfl)
    · exact quiet_log rfl
    · split
      · exact quiet_log rfl
      · exact notify_plain _ rfl (by rintro (_ | _) <;> rfl)
    · exact quiet_log rfl

theorem fetching_some {c : Conn} {d : ContextInWatcher} {result : Fetched} (h : c.fetching = some (d, result)) :
    c.handling = none ∧ ∃ inbox, c.inbox = .fetched d result :: inbox := by
  unfold Conn.fetching at h
  split at h
  · rename_i d' result' inbox hh hin
    cases h
    exact ⟨hh, inbox, hin⟩
  · cases h

theorem deliver_fetching {zh : Nat} {d : ContextInWatcher} {result : Fetched}
    (hf : (s.conns zh).fetching = some (d, result)) (h : s.deliver zh = some t) :
    ∃ c, (s.setConn zh c).fetched d result = some t := by
  obtain ⟨hh, inbox, hin⟩ := fetching_some hf
  simp only [St.deliver, hh, hin] at h
  exact ⟨_, h⟩

theorem deliver_other {zh : Nat} (hf : (s.conns zh).fetching = none) (h : s.deliver zh = some t) :
    t.log = s.log := by
  unfold St.deliver at h
  dsimp only at h
  split at h
  · cases h
    rfl
  · split at h
    · cases h
    · cases h
      rfl
  · rename_i d result inbox hh hin
    rw [Conn.fetching, hh, hin] at hf
    cases hf
  · cases h

theorem quiet_step (h : step s a = some t) (hdeliver : ∀ zh, a ≠ .deliver zh)
    (hdispatch : ∀ zh accepted, a ≠ .dispatch zh accepted) : t.log = s.log := by
  cases step_inv h with
  | session _ _ =>
    unfold St.session
    dsimp only
    split <;> rfl
  | sessionWatcher _ _ | event _ _ _ | fetched _ _ _ _ _ _ => exact absurd rfl (hdeliver _)
  | told _ _ _ _ _ | fetch _ _ _ _ _ | nothing _ _ _ _ => exact absurd rfl (hdispatch _ _)
  | regRefused => rfl
  | _ => rfl

/-! ## A step -/

variable {told : Option Notification}

structure CacheInv (k : Kind) (p : Path) (x : St × Option Notification) : Prop where
  entry : EntryInitial k p x.1
  registered : ∀ n ∈ x.2, x.1.isShouldNotify k p = true
  plain : ∀ n ∈ x.2, n.Plain k

theorem cacheFollows_of_inv {x : St × Option Notification} (hi : CacheInv k p x) : CacheFollows k p x := by
  intro n hn hc
  obtain ⟨data, hdata⟩ := Option.isSome_iff_exists.mp (hi.registered n hn)
  exact ⟨data, hdata, (hi.entry data hdata).shows_iff.mpr (hi.plain n hn hc)⟩

theorem plain_step (hg : FetchesInitial k p (s, told) a) (h : step s a = some t) :
    ∃ ns, t.log = s.log ++ ns ∧ ∀ n ∈ ns, n.ctx.on k p → n.Plain k := by
  have hall : (∃ ns, t.log = s.log ++ ns ∧ ∀ m ∈ ns, ∀ k, m.Plain k) →
      ∃ ns, t.log = s.log ++ ns ∧ ∀ n ∈ ns, n.ctx.on k p → n.Plain k := fun ⟨ns, hlog, hns⟩ =>
    ⟨ns, hlog, fun n hn _ => hns n hn k⟩
  cases a with
  | deliver zh =>
    simp only [step] at h
    split at h
    · cases hf : (s.conns zh).fetching with
      | none => exact hall (quiet_log (deliver_other hf h))
      | some f =>
        obtain ⟨d, result⟩ := f
        obtain ⟨c, h⟩ := deliver_fetching hf h
        cases hreg : s.isShouldNotify d.ctx.kind d.ctx.path with
        | false =>
          have ht := fetched_untold h hreg
          exact hall (quiet_log (by rw [ht]; rfl))
        | true =>
          obtain ⟨n, rfl, hctx, hplain⟩ := fetched_told h hreg
          refine ⟨[n], rfl, fun m hm hon => ?_⟩
          cases List.mem_singleton.mp hm
          rw [hctx] at hon
          obtain ⟨hk, hp⟩ := hon
          subst hk hp
          exact hplain.mpr (hg _ hf ⟨rfl, rfl⟩ hreg)
    · cases h
  | dispatch zh accepted =>
    simp only [step] at h
    split at h
    · exact hall (dispatch_plain h)
    · cases h
  | _ => exact hall (quiet_log (quiet_step h (fun _ => Act.noConfusion) fun _ _ => Act.noConfusion))

theorem lastTold_eq {ns : List Notification} (h : step s a = some t) (hlog : t.log = s.log ++ ns) :
    lastTold k p told s a =
      if t.isShouldNotify k p then (ns.filter (·.ctx.on k p)).getLast?.or told else none := by
  rw [lastTold, h]
  dsimp only
  rw [hlog, List.drop_left]

theorem cacheInv_step {x y : St × Option Notification} (hi : CacheInv k p x) (hg : FetchesInitial k p x a)
    (h : telling k p x a = some y) : CacheInv k p y := by
  obtain ⟨s, told⟩ := x
  obtain ⟨t, told'⟩ := y
  obtain ⟨hstep, htold⟩ := Lts.withHistory_some h
  dsimp only at hstep htold
  obtain ⟨ns, hlog, hns⟩ := plain_step hg hstep
  rw [lastTold_eq hstep hlog] at htold
  subst htold
  refine ⟨entryInitial_step hi.entry hstep, fun n hn => ?_, fun n hn => ?_⟩
  · dsimp only at hn ⊢
    split at hn
    · assumption
    · cases hn
  · dsimp only at hn
    split at hn
    -- the last notification of the step counts, or else the one before it
    · cases hlast : (ns.filter (·.ctx.on k p)).getLast? with
      | none =>
        rw [hlast, Option.none_or] at hn
        exact hi.plain n hn
      | some m =>
        rw [hlast, Option.some_or] at hn
        cases hn
        obtain ⟨hmem, hon⟩ := List.mem_filter.mp (List.mem_of_getLast? hlast)
        exact hns n hmem (of_decide_eq_true hon)
    · cases hn

theorem not_cacheFollows {x y : St × Option Notification} (hi : CacheInv k p x) (hg : ¬ FetchesInitial k p x a)
    (h : telling k p x a = some y) : ¬ CacheFollows k p y := by
  obtain ⟨s, told⟩ := x
  obtain ⟨t, told'⟩ := y
  obtain ⟨hstep, htold⟩ := Lts.withHistory_some h
  dsimp only at hstep htold
  cases a with
  | deliver zh =>
    simp only [FetchesInitial, not_forall] at hg
    obtain ⟨⟨d, result⟩, hf, ⟨hk, hp⟩, hreg, hnew⟩ := hg
    subst hk hp
    dsimp only at hreg hnew ⊢
    have hdeliver := hstep
    simp only [step] at hdeliver
    split at hdeliver
    · obtain ⟨c, hfetched⟩ := deliver_fetching hf hdeliver
      obtain ⟨n, ht, hctx, hplain⟩ := fetched_told hfetched hreg
      have hlog : t.log = s.log ++ [n] := by rw [ht]; rfl
      have hdatas : t.datas = s.datas := by rw [ht]; rfl
      have hon : n.ctx.on d.ctx.kind d.ctx.path := by
        rw [hctx]
        exact ⟨rfl, rfl⟩
      have hsaid : told' = some n := by
        have hkept : t.isShouldNotify d.ctx.kind d.ctx.path = true := by
          rw [St.isShouldNotify, hdatas]
          exact hreg
        rw [htold, lastTold_eq hstep hlog, if_pos hkept, List.filter_cons_of_pos (by simpa using hon)]
        rfl
      intro hfollows
      have hnot : ¬ n.Plain d.ctx.kind := fun hp => hnew (hplain.mp hp)
      refine hnot fun hc => ?_
      obtain ⟨data, hdata, hshows⟩ := hfollows n hsaid hc
      dsimp only at hdata
      rw [hdatas] at hdata
      exact (hi.entry data hdata).shows_iff.mp hshows
    · cases hdeliver
  | _ => exact absurd trivial hg

theorem cacheInv_initial (nodes : Tree) : CacheInv k p (St.initial nodes, none) := ⟨nofun, nofun, nofun⟩

/-- In every run the cache of a path follows the notifications just when every fetch for it returns the value that
the registration has stored. -/
theorem cacheFollows_iff {nodes : Tree} {acts : List Act} (hrun : Lts.run step (St.initial nodes) acts = some t) :
    Lts.Throughout (telling k p) (CacheFollows k p) (St.initial nodes, none) acts ↔
      Lts.Along (telling k p) (FetchesInitial k p) (St.initial nodes, none) acts := by
  obtain ⟨w, htelling⟩ := Lts.run_withHistory (lastTold k p) none hrun
  refine Lts.throughout_iff_along ?_ (fun _ hi => cacheFollows_of_inv hi) ?_ (cacheInv_initial nodes) htelling
  · exact fun x a y hi hg h => cacheInv_step hi hg h
  · exact fun x a y hi hg h => not_cacheFollows hi hg h

end

def emptied : List Act :=
  [.reg .child ["a"] (some 1) 0, .serve 0, .regReturn 0, .foreign (.create ["b", "a"] (some "v")), .deliver 0,
    .dispatch 0 true, .foreign (.delete ["b", "a"]), .serve 0, .deliver 0]

theorem cacheFollows_emptied : Lts.Throughout (telling .child ["a"]) (CacheFollows .child ["a"])
    (St.initial oneNode, none) emptied :=
  (cacheFollows_iff (t := (Lts.run step (St.initial oneNode) emptied).get (by decide)) (by simp)).mpr (by decide)

/-- "/a" is set to "v1": the user is told of it, and the entry has no value. -/
theorem not_cacheFollows_set : ¬ Lts.Throughout (telling .node ["a"]) (CacheFollows .node ["a"])
    (St.initial oneNode, none) (registered ++ setNode ++ [.serve 0, .deliver 0]) := by
  apply Lts.not_throughout
  decide

end ZkCppClient.Watch
