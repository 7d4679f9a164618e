import ZkCppClient.Lib.Ranked
import ZkCppClient.Recipes.SharedExclusion

/-!
# Order of the shared lock

Who waits does so for a node with a smaller number than its own. Where nobody
asks for the lock that has it already, every chain of those who wait for one
another comes to an end.
-/

namespace ZkCppClient.Recipes.SharedLock

open SlashPath Ops Relation

def Pc.locks : Pc → Bool
  | .creating _ | .listing .. | .registering .. | .waiting .. | .parked .. => true
  | _ => false

def Pc.behind : Pc → Option (Bool × String)
  | .registering isRead retPath | .waiting isRead retPath | .parked isRead retPath => some (isRead, retPath)
  | _ => none

def Pc.waits : Pc → Option Bool
  | .waiting isRead _ | .parked isRead _ => some isRead
  | _ => none

def DistriSharedLock.awaited (o : DistriSharedLock) : Option (Bool × String) :=
  o.pc.waits.map fun isRead => (isRead, o.leastNodePath isRead)

section
variable {ι : Type*}

/-- The node of one of `j`'s requests is the one that `i` waits for. -/
def WaitsFor (s : St ι) (i j : ι) : Prop := ∃ w ∈ (s.objects i).awaited, ∃ x ∈ (s.objects j).tickets, x.2 = w.2

/-- Nobody waits for himself through others: whoever waits, does so through others for one that does not
wait, or that waits for a node that is nobody's. -/
def ChainsEnd (s : St ι) : Prop :=
  ∀ i, ¬ TransGen (WaitsFor s) i i ∧ ∃ j, ReflTransGen (WaitsFor s) i j ∧
    ∀ w ∈ (s.objects j).awaited, ∀ k, ∀ x ∈ (s.objects k).tickets, x.2 ≠ w.2

/-- Nobody asks for the lock that has it. -/
def NotHeld (s : St ι) : Act ι → Prop
  | .lock i _ => (s.objects i).held = []
  | _ => True

end

/-! ## Order -/

/-- One request at a time, and a waiting one is behind the node that it waits for. -/
structure InOrder (o : DistriSharedLock) : Prop where
  single : o.held.length ≤ 1
  lone : o.pc.locks → o.held = []
  ahead : ∀ x ∈ o.pc.behind, getSeqNo (o.leastNodePath x.1) < getSeqNo x.2

def DistriSharedLock.rank (o : DistriSharedLock) : Nat := (o.tickets.map fun x => getSeqNo x.2).headD 0

section
variable {o o' : DistriSharedLock} {x : Bool × String} {isRead : Bool} {retPath node path : String}

theorem Pc.locks_of_ticket {pc : Pc} (h : pc.ticket = some x) : pc.locks := by
  cases pc <;> simp_all [Pc.ticket, Pc.locks]

theorem Pc.ticket_of_behind {pc : Pc} (h : pc.behind = some x) : pc.ticket = some x := by
  cases pc <;> simp_all [Pc.ticket, Pc.behind]

theorem Pc.behind_of_waits {pc : Pc} (h : pc.waits = some isRead) : ∃ retPath, pc.behind = some (isRead, retPath) := by
  cases pc <;> simp_all [Pc.waits, Pc.behind]

theorem getSeqNo_append {pre : String} (h : '-' ∉ pre.toList) (node : String) : getSeqNo (pre ++ node) = getSeqNo node := by
  have hdrop : ∀ i, (pre ++ node).toList.drop (i + pre.toList.length + 3) = node.toList.drop (i + 3) := by
    intro i
    rw [String.toList_append, Nat.add_right_comm, Nat.add_comm, List.drop_append, List.drop_eq_nil_of_le (Nat.le_add_right _ _)]
    simp
  unfold getSeqNo readMark writeMark
  rw [String.toList_append, Find.find_append_of_notMem h, Find.find_append_of_notMem h, ← String.toList_append]
  cases Find.find ['-', 'R', '-'] node.toList with
  | some i => simp only [Option.map_some, hdrop]
  | none =>
    cases Find.find ['-', 'W', '-'] node.toList with
    | some i => simp only [Option.map_none, Option.map_some, hdrop]
    | none => rfl

theorem InOrder.tickets_eq (h : InOrder o) (hx : x ∈ o.tickets) : o.tickets = [x] := by
  have hlone := h.lone
  have hsingle := h.single
  unfold DistriSharedLock.tickets at hx ⊢
  cases hticket : o.pc.ticket with
  | some y =>
    rw [hlone (Pc.locks_of_ticket hticket)] at hx ⊢
    simpa [hticket, eq_comm] using hx
  | none =>
    rw [hticket] at hx
    match hheld : o.held with
    | [] => simp [hheld] at hx
    | [y] => simpa [hheld, eq_comm] using hx
    | _ :: _ :: _ => simp [hheld] at hsingle

theorem InOrder.rank_eq (h : InOrder o) (hx : x ∈ o.tickets) : o.rank = getSeqNo x.2 := by
  rw [DistriSharedLock.rank, h.tickets_eq hx]
  rfl

theorem InOrder.awaited_lt (h : InOrder o) (hw : x ∈ o.awaited) : getSeqNo x.2 < o.rank := by
  obtain ⟨isRead, hwaits, rfl⟩ := Option.map_eq_some_iff.mp hw
  obtain ⟨retPath, hbehind⟩ := Pc.behind_of_waits hwaits
  have hmem : (isRead, retPath) ∈ o.tickets := List.mem_append_left _ (Option.mem_toList.mpr (Pc.ticket_of_behind hbehind))
  rw [h.rank_eq hmem]
  exact h.ahead _ hbehind

theorem InOrder.of_same (h : InOrder o) (hheld : o'.held = o.held) (hleast : o'.leastNodePath = o.leastNodePath)
    (hlocks : o'.pc.locks → o.pc.locks) (hbehind : ∀ x ∈ o'.pc.behind, x ∈ o.pc.behind) : InOrder o' := by
  constructor
  · rw [hheld]
    exact h.single
  · rw [hheld]
    exact fun hl => h.lone (hlocks hl)
  · rw [hleast]
    exact fun x hx => h.ahead x (hbehind x hx)

theorem InOrder.outside (h : InOrder o) (hheld : o'.held = o.held) (hleast : o'.leastNodePath = o.leastNodePath)
    (hlocks : o'.pc.locks = false) : InOrder o' := by
  apply h.of_same hheld hleast
  · simp [hlocks]
  · intro x hx
    rw [Pc.locks_of_ticket (Pc.ticket_of_behind hx)] at hlocks
    cases hlocks

theorem InOrder.granted (h : InOrder o) (hlocks : o.pc.locks) : InOrder (o.granted isRead retPath) := by
  have hlone := h.lone hlocks
  obtain ⟨hreaders, hwriter⟩ := List.append_eq_nil_iff.mp hlone
  have hreaders := List.map_eq_nil_iff.mp hreaders
  have hwriter : o.writerChildPath = "" := by simpa using hwriter
  constructor
  · cases isRead with
    | true => simp [DistriSharedLock.granted, DistriSharedLock.held, hreaders, hwriter]
    | false =>
      simp only [DistriSharedLock.granted, DistriSharedLock.held, hreaders, Bool.false_eq_true, if_false]
      split <;> simp
  · cases isRead <;> simp [DistriSharedLock.granted, Pc.locks]
  · cases isRead <;> simp [DistriSharedLock.granted, Pc.behind]

theorem InOrder.blocked (h : InOrder o) (hlocks : o.pc.locks) (hblocks : blocks isRead retPath node = true) :
    InOrder (o.blocked isRead retPath node) := by
  have hlone := h.lone hlocks
  have hheld : (o.blocked isRead retPath node).held = o.held := by cases isRead <;> rfl
  have hlt : getSeqNo node < getSeqNo retPath := by
    simp only [blocks, Bool.and_eq_true, decide_eq_true_iff] at hblocks
    exact hblocks.2
  constructor
  · rw [hheld]
    exact h.single
  · rw [hheld]
    exact fun _ => hlone
  · have hname : getSeqNo (parentPath ++ "/" ++ node) = getSeqNo node := getSeqNo_append (by decide) node
    cases isRead <;> simp [DistriSharedLock.blocked, DistriSharedLock.leastNodePath, Pc.behind, hname, hlt]

theorem leastNodeName_blocks {sorted : List String} (h : leastNodeName isRead retPath sorted = some node) :
    blocks isRead retPath node = true := by
  have hfold : ∀ (nodes : List String) (least : Option String), (∀ node ∈ least, blocks isRead retPath node = true) →
      ∀ node ∈ nodes.foldl (fun least node => if blocks isRead retPath node then some node else least) least,
        blocks isRead retPath node = true := by
    intro nodes
    induction nodes with
    | nil => exact fun _ hleast => hleast
    | cons node nodes ih =>
      intro least hleast
      apply ih
      dsimp only
      by_cases hb : blocks isRead retPath node = true
      · rw [if_pos hb]
        rintro _ ⟨⟩
        exact hb
      · rw [if_neg hb]
        exact hleast
  exact hfold sorted none (by simp) node h

theorem inOrder_initial : InOrder {} := by
  constructor <;> simp [DistriSharedLock.held, Pc.behind]

theorem InOrder.unlock (h : InOrder o) (hu : o.unlock = some o') : InOrder o' := by
  have hsingle := h.single
  unfold DistriSharedLock.unlock at hu
  split at hu
  · cases hu
    exact h
  · split at hu
    · cases hu
    · rename_i childPath paths hpaths
      cases hu
      refine ⟨?_, by simp [Pc.locks], by simp [Pc.behind]⟩
      simp only [DistriSharedLock.held, hpaths, List.map_cons, List.cons_append, List.length_cons] at hsingle ⊢
      omega
  · split at hu
    · cases hu
    · rename_i hwriter
      cases hu
      refine ⟨?_, by simp [Pc.locks], by simp [Pc.behind]⟩
      simp only [DistriSharedLock.held, hwriter, if_false, if_true, List.length_append] at hsingle ⊢
      simp only [List.length_nil, List.length_cons] at hsingle ⊢
      omega

theorem InOrder.callback (h : InOrder o) : InOrder (regWatcher_cb o isRead path) := by
  unfold regWatcher_cb
  split
  · split
    · rename_i isRead' retPath hpc
      split
      · exact h.of_same rfl rfl (by simp [hpc, Pc.locks]) (by simp [Pc.behind])
      · exact h
    · exact h
  · exact h

end

section
variable {ι : Type*} {s : St ι}

theorem chainsEnd_of_inOrder (h : ∀ i, InOrder (s.objects i)) : ChainsEnd s := by
  have hrank : ∀ i j, WaitsFor s i j → (s.objects j).rank < (s.objects i).rank := by
    rintro i j ⟨w, hw, x, hx, hpath⟩
    rw [(h j).rank_eq hx, hpath]
    exact (h i).awaited_lt hw
  intro i
  obtain ⟨j, hchain, hend⟩ := Ranked.exists_end hrank i
  exact ⟨Ranked.not_transGen_self hrank i, j, hchain, fun w hw k x hx hpath => hend k ⟨w, hw, x, hx, hpath⟩⟩

end

section
variable {ι : Type*} [DecidableEq ι] {childNodeName : ι → Text} {s t : St ι} {i : ι} {o : DistriSharedLock}

theorem step_inOrder {a : Act ι} (hi : ∀ i, InOrder (s.objects i)) (hg : NotHeld s a)
    (h : step childNodeName s a = some t) : ∀ i, InOrder (t.objects i) := by
  have hserver : ∀ server j, InOrder ((s.setServer server).objects j) :=
    fun server j => (hi j).of_same rfl rfl (fun hl => hl) fun x hx => hx
  cases a with
  | init i f =>
    simp only [step] at h
    split at h
    · cases h
    · split at h <;> cases h
      · exact forall_setObject (hserver _) ((hi i).of_same rfl rfl (fun hl => hl) fun x hx => hx)
      · exact forall_setObject (hserver _) ((hi i).of_same rfl rfl (fun hl => hl) fun x hx => hx)
      · exact hserver _
  | lock i isRead =>
    simp only [step] at h
    split at h <;> cases h
    -- who asks has no lock, so that the new request is its only one
    have hnone : (s.objects i).held = [] := hg
    refine forall_setObject hi ⟨?_, fun _ => hnone, by simp [Pc.behind]⟩
    show (s.objects i).held.length ≤ 1
    simp [hnone]
  | createChild i f =>
    simp only [step] at h
    split at h
    · rename_i isRead hpc
      split at h <;> cases h
      · exact forall_setObject (hserver _) ((hi i).of_same rfl rfl (by simp [hpc, Pc.locks]) (by simp [Pc.behind]))
      · exact forall_setObject (hserver _) ((hi i).outside rfl rfl rfl)
    · cases h
  | getChildren i f sorted =>
    simp only [step] at h
    split at h
    · rename_i isRead retPath hpc
      have hlocks : (s.objects i).pc.locks := by simp [hpc, Pc.locks]
      split at h
      · split at h
        · split at h <;> cases h
          · exact forall_setObject hi ((hi i).granted hlocks)
          · rename_i hleast
            -- the node that is registered for is ahead of the request, and so it stays while the thread waits
            exact forall_setObject hi ((hi i).blocked hlocks (leastNodeName_blocks hleast))
        · cases h
      · cases h
        exact forall_setObject hi ((hi i).outside rfl rfl rfl)
    · cases h
  | regNodeWatcher i ok =>
    simp only [step] at h
    split at h
    · rename_i isRead retPath hpc
      split at h <;> cases h
      · exact forall_setObject hi ((hi i).of_same rfl rfl (by simp [hpc, Pc.locks]) (by simp [hpc, Pc.behind]))
      · exact forall_setObject hi ((hi i).outside rfl rfl rfl)
    · cases h
  | wait i =>
    simp only [step] at h
    split at h <;> cases h
    rename_i hpc
    exact forall_setObject hi ((hi i).of_same rfl rfl (by simp [hpc, Pc.locks]) (by simp [hpc, Pc.behind]))
  | wake i =>
    simp only [step] at h
    split at h <;> cases h
    rename_i hpc
    exact forall_setObject hi ((hi i).of_same rfl rfl (by simp [hpc, Pc.locks]) (by simp [Pc.behind]))
  | callback i =>
    simp only [step] at h
    split at h <;> cases h
    have hsame : ∀ inbox, InOrder { s.objects i with inbox } :=
      fun inbox => (hi i).of_same rfl rfl (fun hl => hl) fun x hx => hx
    exact forall_setObject hi (hsame _).callback
  | unlock i =>
    simp only [step] at h
    split at h
    · obtain ⟨o, ho, rfl⟩ := Option.map_eq_some_iff.mp h
      exact forall_setObject hi ((hi i).unlock ho)
    · cases h
  | list i f =>
    simp only [step] at h
    split at h
    · split at h <;> cases h
      · exact forall_setObject hi ((hi i).outside rfl rfl rfl)
      · exact forall_setObject hi ((hi i).outside rfl rfl rfl)
    · cases h
  | delete i f =>
    simp only [step] at h
    split at h <;> cases h
    exact forall_setObject (hserver _) ((hi i).outside rfl rfl rfl)
  | drop path =>
    simp only [step] at h
    split at h <;> cases h
    exact hserver _
  | retry i =>
    cases h
    exact forall_setObject hi ((hi i).of_same rfl rfl id fun _ hx => hx)

/-- **No deadlock.** Where nobody asks for the lock that has it, there is no circle of objects that wait for
one another, whatever requests fail: whoever waits, waits through others for one that does not wait, or for
a node that is nobody's request. -/
theorem chainsEnd_throughout (childNodeName : ι → Text) (server : Server) {as : List (Act ι)}
    (h : Lts.Along (step childNodeName) NotHeld (St.initial ι server) as) :
    Lts.Throughout (step childNodeName) ChainsEnd (St.initial ι server) as :=
  Lts.throughout_of_along (I := fun s => ∀ i, InOrder (s.objects i)) (fun _ _ _ hi hg => step_inOrder hi hg)
    (fun _ => chainsEnd_of_inOrder) (fun _ => inOrder_initial) h

instance (s : St ι) : (a : Act ι) → Decidable (NotHeld s a)
  | .lock i _ => inferInstanceAs (Decidable ((s.objects i).held = []))
  | .init .. | .createChild .. | .getChildren .. | .regNodeWatcher .. | .wait _ | .wake _ | .callback _ | .unlock _
  | .list .. | .delete .. | .drop _ | .retry _ => isTrue trivial

end

theorem chainsEnd_contended : Lts.Throughout (step fun _ => rwlock.name) ChainsEnd (St.initial Bool bareServer)
    (contended ++ [.wait false]) :=
  chainsEnd_throughout (fun _ => rwlock.name) bareServer (by decide +kernel)

/-- Two readers that both want to write wait for each other. -/
def upgraded : List (Act Bool) :=
  [.init true .answered, .init false .answered, .lock true true, .createChild true .answered,
    .getChildren true .answered ["rwlock-R-0000000000"], .lock false true, .createChild false .answered,
    .getChildren false .answered ["rwlock-R-0000000000", "rwlock-R-0000000001"], .lock true false,
    .createChild true .answered,
    .getChildren true .answered ["rwlock-R-0000000000", "rwlock-R-0000000001", "rwlock-W-0000000002"],
    .regNodeWatcher true true, .wait true, .lock false false, .createChild false .answered,
    .getChildren false .answered
      ["rwlock-R-0000000000", "rwlock-R-0000000001", "rwlock-W-0000000002", "rwlock-W-0000000003"],
    .regNodeWatcher false true, .wait false]

theorem not_chainsEnd_upgraded : ¬ Lts.Throughout (step fun _ => rwlock.name) ChainsEnd (St.initial Bool bareServer)
    upgraded := by
  have hcircle : ∃ t ∈ Lts.run (step fun _ => rwlock.name) (St.initial Bool bareServer) upgraded,
      ∀ i, ∃ w ∈ (t.objects i).awaited, ∃ j, ∃ x ∈ (t.objects j).tickets, x.2 = w.2 := by decide +kernel
  obtain ⟨t, ht, hwaits⟩ := hcircle
  apply Lts.not_throughout
  refine ⟨t, ht, fun h => ?_⟩
  obtain ⟨-, i, -, hend⟩ := h true
  obtain ⟨w, hw, j, x, hx, hpath⟩ := hwaits i
  exact hend w hw j x hx hpath

end ZkCppClient.Recipes.SharedLock
