import ZkCppClient.Logging.Machine

/-!
# The buffers of the log

No buffer is null where it is used and no assertion of the log thread fails,
whatever the threads do: where the appending threads have used up the next
buffer there are at least two to write, and the log thread gets both of its own
back.
-/

namespace ZkCppClient.Logging

def Pc.rests : Pc → Bool
  | .top | .locking | .waiting _ => true
  | _ => false

def Pc.writes : Pc → Bool
  | .taken | .writing _ | .recycling => true
  | _ => false

/-- There are enough buffers to get those of the log thread back. -/
structure Enough (newBuffer1 newBuffer2 : Option Buffer) (buffersToWrite : List Buffer) : Prop where
  first : newBuffer1 = none
  second : ∀ b ∈ newBuffer2, b = .new
  one : buffersToWrite ≠ []
  two : newBuffer2 = none → 2 ≤ buffersToWrite.length

structure Inv (s : St) : Prop where
  fault : s.fault = none
  current : s.currentBuffer ≠ none
  next : ∀ b ∈ s.nextBuffer, b = .new
  used : s.nextBuffer = none → s.buffers ≠ []
  none : s.pc.writes = false → s.buffersToWrite = []
  rests : s.pc.rests = true → s.newBuffer1 = some .new ∧ s.newBuffer2 = some .new
  writes : s.pc.writes = true → Enough s.newBuffer1 s.newBuffer2 s.buffersToWrite

section
variable {s t : St}

@[simp] theorem rests_notify (pc : Pc) : pc.notify.rests = pc.rests := by cases pc <;> rfl

@[simp] theorem writes_notify (pc : Pc) : pc.notify.writes = pc.writes := by cases pc <;> rfl

theorem append_room {current : Buffer} {logline : Logline} (hcurrent : s.currentBuffer = some current)
    (hroom : logline.val.length < current.avail) :
    s.append logline = { s with currentBuffer := some (current.append logline) } := by
  simp only [St.append, hcurrent, gt_iff_lt, hroom, if_true]

theorem append_full (hi : Inv s) {current : Buffer} {logline : Logline} (hcurrent : s.currentBuffer = some current)
    (hfull : ¬ logline.val.length < current.avail) : s.append logline = { s with
      buffers := s.buffers ++ [current]
      currentBuffer := some (Buffer.new.append logline)
      nextBuffer := none
      pc := s.pc.notify } := by
  have hnext : s.nextBuffer.getD .new = .new := by
    cases h : s.nextBuffer with
    | none => rfl
    | some b => exact hi.next b h
  simp only [St.append, hcurrent, gt_iff_lt, hfull, if_false, hnext]

theorem Inv.append (hi : Inv s) (logline : Logline) : Inv (s.append logline) := by
  obtain ⟨current, hcurrent⟩ := Option.ne_none_iff_exists'.mp hi.current
  by_cases hroom : logline.val.length < current.avail
  · rw [append_room hcurrent hroom]
    exact ⟨hi.fault, by simp, hi.next, hi.used, hi.none, hi.rests, hi.writes⟩
  · rw [append_full hi hcurrent hroom]
    exact ⟨hi.fault, by simp, by simp, by simp, fun h => hi.none (by simpa using h), fun h => hi.rests (by simpa using h),
      fun h => hi.writes (by simpa using h)⟩

theorem Inv.swap (hi : Inv s) (hrests : s.pc.rests = true) : Inv s.swap := by
  obtain ⟨current, hcurrent⟩ := Option.ne_none_iff_exists'.mp hi.current
  obtain ⟨hnew1, hnew2⟩ := hi.rests hrests
  simp only [St.swap, hcurrent]
  cases hnext : s.nextBuffer with
  | none =>
    refine ⟨hi.fault, by simp [hnew1], by simp [hnew2], by simp [hnew2], by simp [Pc.writes], by simp [Pc.rests], fun _ => ?_⟩
    refine ⟨rfl, by simp, by simp, fun _ => ?_⟩
    have hpos := List.length_pos_of_ne_nil (hi.used hnext)
    rw [List.length_append]
    exact Nat.succ_le_succ hpos
  | some next =>
    refine ⟨hi.fault, by simp [hnew1], ?_, by simp, by simp [Pc.writes], by simp [Pc.rests], fun _ => ?_⟩
    · simpa [hnext] using hi.next
    · exact ⟨rfl, by simp [hnew2], by simp, by simp [hnew2]⟩

theorem recycle_eq (henough : Enough s.newBuffer1 s.newBuffer2 s.buffersToWrite) : s.recycle = { s with
    newBuffer1 := some .new
    newBuffer2 := some .new
    buffersToWrite := []
    flushed := s.output.length
    pc := .top } := by
  have hone : s.buffersToWrite.take 2 ≠ [] := by simp [henough.one]
  simp only [St.recycle, reclaim, henough.first, hone, if_false]
  cases hnew2 : s.newBuffer2 with
  | some b => rw [henough.second b hnew2]
  | none =>
    have htwo : (s.buffersToWrite.take 2).dropLast ≠ [] := by
      apply List.ne_nil_of_length_pos
      have hlen := henough.two hnew2
      simp only [List.length_dropLast, List.length_take]
      omega
    simp only [htwo, if_false]

theorem ready_of_rests (hi : Inv s) (hrests : s.pc.rests = true) (hwrites : s.pc.writes = false) : s.ready = true := by
  obtain ⟨hnew1, hnew2⟩ := hi.rests hrests
  simp [St.ready, hnew1, hnew2, hi.none hwrites, Buffer.new]

theorem Inv.threadStep (hi : Inv s) (h : s.threadStep = some t) : Inv t := by
  unfold St.threadStep at h
  split at h
  · cases h
  · cases h
  · cases h
  · rename_i hpc
    have hrests : s.pc.rests = true := by rw [hpc]; rfl
    have hwrites : s.pc.writes = false := by rw [hpc]; rfl
    split at h <;> cases h
    · rw [if_pos (ready_of_rests hi hrests hwrites)]
      exact ⟨hi.fault, hi.current, hi.next, hi.used, fun _ => hi.none hwrites, fun _ => hi.rests hrests, by simp [Pc.writes]⟩
    · exact ⟨hi.fault, hi.current, hi.next, hi.used, fun _ => hi.none hwrites, by simp [Pc.rests], by simp [Pc.writes]⟩
  · rename_i hpc
    have hrests : s.pc.rests = true := by rw [hpc]; rfl
    have hwrites : s.pc.writes = false := by rw [hpc]; rfl
    cases h
    split
    · exact ⟨hi.fault, hi.current, hi.next, hi.used, fun _ => hi.none hwrites, fun _ => hi.rests hrests, by simp [Pc.writes]⟩
    · exact hi.swap hrests
  · rename_i hpc
    cases h
    exact hi.swap (by rw [hpc]; rfl)
  · rename_i hpc
    have henough := hi.writes (by rw [hpc]; rfl)
    rw [if_neg henough.one] at h
    split at h <;> cases h
    -- two buffers are kept when the others are dropped, enough to get both back
    · refine ⟨hi.fault, hi.current, hi.next, hi.used, by simp [Pc.writes], by simp [Pc.rests], fun _ => ?_⟩
      refine ⟨henough.first, henough.second, by simp [henough.one], fun _ => ?_⟩
      simp only [List.length_take]
      omega
    · exact ⟨hi.fault, hi.current, hi.next, hi.used, by simp [Pc.writes], by simp [Pc.rests], fun _ => henough⟩
  · rename_i hpc
    have henough := hi.writes (by rw [hpc]; rfl)
    split at h <;> cases h <;>
      exact ⟨hi.fault, hi.current, hi.next, hi.used, by simp [Pc.writes], by simp [Pc.rests], fun _ => henough⟩
  · rename_i hpc
    cases h
    rw [recycle_eq (hi.writes (by rw [hpc]; rfl))]
    exact ⟨hi.fault, hi.current, hi.next, hi.used, fun _ => rfl, fun _ => ⟨rfl, rfl⟩, by simp [Pc.writes]⟩

theorem Inv.step (hi : Inv s) {a : Act} (h : step s a = some t) : Inv t := by
  unfold Logging.step at h
  rw [if_neg (by simp [hi.fault])] at h
  cases a with
  | start =>
    dsimp only at h
    split at h <;> cases h
    rename_i hpc
    exact ⟨hi.fault, hi.current, hi.next, hi.used, fun _ => hi.none (by rw [hpc]; rfl), fun _ => ⟨rfl, rfl⟩, by simp [Pc.writes]⟩
  | append logline =>
    cases h
    exact hi.append logline
  | stop =>
    cases h
    exact ⟨hi.fault, hi.current, hi.next, hi.used, hi.none, hi.rests, hi.writes⟩
  | notify =>
    cases h
    exact ⟨hi.fault, hi.current, hi.next, hi.used, fun h => hi.none (by simpa using h), fun h => hi.rests (by simpa using h),
      fun h => hi.writes (by simpa using h)⟩
  | wake =>
    dsimp only at h
    split at h <;> cases h
    rename_i hpc
    exact hi.swap (by rw [hpc]; rfl)
  | thread => exact hi.threadStep h

theorem inv_initial : Inv {} :=
  ⟨rfl, by simp, by simp, by simp, fun _ => rfl, by simp [Pc.rests], by simp [Pc.writes]⟩

end

end ZkCppClient.Logging
