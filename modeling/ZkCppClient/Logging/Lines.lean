import ZkCppClient.Logging.Buffers

/-!
# The lines of the log

Every line that fits into a buffer goes into the buffers whole and in order.
The log thread writes them in that order; only of more than 25 that it takes at
once it leaves out all but two, and says how many.
-/

namespace ZkCppClient.Logging

/-! ## What has been appended and taken -/

structure Log where
  lines : List Logline
  batches : List (List Buffer)

def Log.empty : Log := ⟨[], []⟩

def St.takes (s : St) : Act → Bool
  | .wake => true
  | .thread => (s.pc = .locking ∧ s.buffers ≠ []) ∨ s.pc = .waiting true
  | _ => false

def Log.record (log : Log) (s : St) (a : Act) : Log :=
  match a with
  | .append logline => { log with lines := log.lines ++ [logline] }
  | a => if s.takes a then { log with batches := log.batches ++ [s.buffers ++ s.currentBuffer.toList] } else log

def logging : St × Log → Act → Option (St × Log) := Lts.withHistory step Log.record

def chunks (batch : List Buffer) : List Chunk :=
  if batch.length > 25 then .dropped (batch.length - 2) :: (batch.take 2).map fun b => .data b.data
  else batch.map fun b => .data b.data

/-- What the log thread is still to write. -/
def St.rest (s : St) : List Chunk :=
  match s.pc with
  | .taken => chunks s.buffersToWrite
  | .writing i => (s.buffersToWrite.drop i).map fun b => .data b.data
  | _ => []

/-- The lines are in the buffers, whole and in order. -/
def Holds (buffers : List Buffer) (lines : List Logline) : Prop :=
  ∃ groups : List (List Logline), groups.flatten = lines ∧
    groups.map (List.flatMap Subtype.val) = buffers.map (·.data)

def Logline.fits (logline : Logline) : Bool := logline.val.length < kLargeBuffer

/-- While the log thread sleeps, and nobody has woken it, everything that it took is in the file, and no buffer is full. -/
structure InOrder (x : St × Log) : Prop where
  lines : Holds (x.2.batches.flatten ++ x.1.buffers ++ x.1.currentBuffer.toList) (x.2.lines.filter Logline.fits)
  written : x.1.output ++ x.1.rest = x.2.batches.flatMap chunks
  asleep : x.1.pc = .waiting false → x.1.buffers = [] ∧ x.1.flushed = x.1.output.length

/-! ## The buffers -/

section
variable {buffers : List Buffer} {b : Buffer} {lines : List Logline} {logline : Logline}

theorem Holds.new (h : Holds buffers lines) : Holds (buffers ++ [.new]) lines := by
  obtain ⟨groups, rfl, hbuffers⟩ := h
  refine ⟨groups ++ [[]], by simp, ?_⟩
  rw [List.map_append, hbuffers, List.map_append]
  rfl

theorem Holds.line (h : Holds (buffers ++ [b]) lines) (hroom : logline.val.length < b.avail) :
    Holds (buffers ++ [b.append logline]) (lines ++ [logline]) := by
  obtain ⟨groups, rfl, hbuffers⟩ := h
  rw [List.map_append, List.map_eq_append_iff] at hbuffers
  obtain ⟨full, last, rfl, hfull, hlast⟩ := hbuffers
  obtain ⟨group, rfl, hgroup⟩ := List.map_eq_singleton_iff.mp hlast
  refine ⟨full ++ [group ++ [logline]], by simp, ?_⟩
  have hline : (group ++ [logline]).flatMap Subtype.val = (b.append logline).data := by
    rw [List.flatMap_append, hgroup, Buffer.append, dif_pos hroom, List.flatMap_singleton]
  rw [List.map_append, hfull, List.map_append, List.map_singleton, List.map_singleton, hline]

theorem append_long (h : logline.fits = false) : Buffer.new.append logline = .new := by
  have hlong : ¬ logline.val.length < Buffer.new.avail := by simpa [Logline.fits, Buffer.new, Buffer.avail] using h
  rw [Buffer.append, dif_neg hlong]

theorem fits_of_room (h : logline.val.length < b.avail) : logline.fits = true :=
  decide_eq_true (Nat.lt_of_lt_of_le h (Nat.sub_le _ _))

end

/-! ## Steps -/

structure LinesInv (x : St × Log) : Prop extends Inv x.1 where
  lines : Holds (x.2.batches.flatten ++ x.1.buffers ++ x.1.currentBuffer.toList) (x.2.lines.filter Logline.fits)
  written : x.1.output ++ x.1.rest = x.2.batches.flatMap chunks
  asleep : x.1.pc = .waiting false → x.1.buffers = []
  flushed : x.1.pc.writes = false → x.1.flushed = x.1.output.length

section
variable {s t : St} {log : Log} {a : Act}

theorem rest_of_not_writes (h : s.pc.writes = false) : s.rest = [] := by
  unfold St.rest
  split
  · rename_i hpc; rw [hpc] at h; cases h
  · rename_i hpc; rw [hpc] at h; cases h
  · rfl

theorem rest_notify (s : St) : St.rest { s with pc := s.pc.notify } = s.rest := by
  cases hpc : s.pc <;> simp [St.rest, Pc.notify, hpc]

theorem linesInv_append (hi : LinesInv (s, log)) (logline : Logline) :
    LinesInv (s.append logline, { log with lines := log.lines ++ [logline] }) := by
  have hinv := hi.toInv.append logline
  obtain ⟨current, hcurrent⟩ := Option.ne_none_iff_exists'.mp hi.current
  replace hcurrent : s.currentBuffer = some current := hcurrent
  have hlines : Holds (log.batches.flatten ++ s.buffers ++ [current]) (log.lines.filter Logline.fits) := by
    simpa [hcurrent] using hi.lines
  by_cases hroom : logline.val.length < current.avail
  · rw [append_room hcurrent hroom] at hinv ⊢
    refine ⟨hinv, ?_, hi.written, hi.asleep, hi.flushed⟩
    simpa [fits_of_room hroom] using hlines.line hroom
  · rw [append_full hi.toInv hcurrent hroom] at hinv ⊢
    refine ⟨hinv, ?_, (congrArg (s.output ++ ·) (rest_notify s)).trans hi.written, ?_, fun h => hi.flushed ?_⟩
    · cases hfits : logline.fits with
      | true =>
        have hempty : logline.val.length < Buffer.new.avail := by simpa [Logline.fits, Buffer.new, Buffer.avail] using hfits
        simpa [hfits] using hlines.new.line hempty
      | false => simpa [hfits, append_long hfits] using hlines.new
    · intro h
      cases hpc : s.pc <;> simp [hpc, Pc.notify] at h
    · simpa using h

theorem linesInv_swap (hi : LinesInv (s, log)) (hrests : s.pc.rests = true) (hwrites : s.pc.writes = false) :
    LinesInv (s.swap, { log with batches := log.batches ++ [s.buffers ++ s.currentBuffer.toList] }) := by
  have hinv := hi.toInv.swap hrests
  obtain ⟨current, hcurrent⟩ := Option.ne_none_iff_exists'.mp hi.current
  replace hcurrent : s.currentBuffer = some current := hcurrent
  have hnew : s.newBuffer1 = some .new := (hi.rests hrests).1
  have hnone : s.buffersToWrite = [] := hi.none hwrites
  have hwritten : s.output = log.batches.flatMap chunks := by
    simpa [rest_of_not_writes hwrites] using hi.written
  simp only [St.swap, hcurrent] at hinv ⊢
  refine ⟨hinv, ?_, ?_, by simp, by simp [Pc.writes]⟩
  · have hlines := hi.lines.new
    simpa [hcurrent, hnew, hnone] using hlines
  · simp [St.rest, hwritten]

theorem record_thread (h : s.takes .thread = false) : log.record s .thread = log := by simp [Log.record, h]

theorem linesInv_moved (hi : LinesInv (s, log)) (hinv : Inv t) (hbuffers : t.buffers = s.buffers)
    (hcurrent : t.currentBuffer = s.currentBuffer) (hwritten : t.output ++ t.rest = s.output ++ s.rest)
    (hasleep : t.pc = .waiting false → t.buffers = [])
    (hflushed : t.pc.writes = false → t.flushed = t.output.length) : LinesInv (t, log) := by
  refine ⟨hinv, ?_, hwritten.trans hi.written, hasleep, hflushed⟩
  have hlines := hi.lines
  dsimp only at hlines ⊢
  rwa [hbuffers, hcurrent]

theorem rest_writing {i : Nat} {b : Buffer} (hpc : s.pc = .writing i) (hb : s.buffersToWrite[i]? = some b) :
    s.rest = .data b.data :: (s.buffersToWrite.drop (i + 1)).map fun b => .data b.data := by
  obtain ⟨hlt, rfl⟩ := List.getElem?_eq_some_iff.mp hb
  unfold St.rest
  rw [hpc]
  dsimp only
  rw [List.drop_eq_getElem_cons hlt]
  rfl

theorem linesInv_threadStep (hi : LinesInv (s, log)) (h : s.threadStep = some t) : LinesInv (t, log.record s .thread) := by
  have hinv := hi.toInv.threadStep h
  cases hpc : s.pc with
  | notStarted | done => simp [St.threadStep, hpc] at h
  | top =>
    have hrest : s.rest = [] := rest_of_not_writes (by rw [hpc]; rfl)
    have hready : s.ready = true := ready_of_rests hi.toInv (by rw [hpc]; rfl) (by rw [hpc]; rfl)
    rw [record_thread (by simp [St.takes, hpc])]
    simp only [St.threadStep, hpc, hready, if_true] at h
    split at h <;> cases h
    · exact linesInv_moved hi hinv rfl rfl (by rw [hrest]; rfl) (by simp) fun _ => hi.flushed (by rw [hpc]; rfl)
    · exact linesInv_moved hi hinv rfl rfl (by rw [hrest]; rfl) (by simp) fun _ => rfl
  | locking =>
    have hrest : s.rest = [] := rest_of_not_writes (by rw [hpc]; rfl)
    simp only [St.threadStep, hpc] at h
    cases h
    by_cases hempty : s.buffers = []
    · rw [record_thread (by simp [St.takes, hpc, hempty])]
      rw [if_pos hempty] at hinv ⊢
      exact linesInv_moved hi hinv rfl rfl (by rw [hrest]; rfl) (fun _ => hempty) fun _ => hi.flushed (by rw [hpc]; rfl)
    · rw [if_neg hempty]
      simpa [Log.record, St.takes, hpc, hempty] using linesInv_swap hi (by rw [hpc]; rfl) (by rw [hpc]; rfl)
  | waiting notified =>  -- woken by `append` or by the clock, it takes what there is
    cases notified with
    | false => simp [St.threadStep, hpc] at h
    | true =>
      simp only [St.threadStep, hpc] at h
      cases h
      simpa [Log.record, St.takes, hpc] using linesInv_swap hi (by rw [hpc]; rfl) (by rw [hpc]; rfl)
  | taken =>
    have hrest : s.rest = chunks s.buffersToWrite := by simp [St.rest, hpc]
    rw [record_thread (by simp [St.takes, hpc])]
    simp only [St.threadStep, hpc, (hi.writes (by rw [hpc]; rfl)).one, if_false] at h
    split at h <;> cases h
    -- more than 25 buffers: all but two are dropped, and the file says so
    · rename_i hmany
      refine linesInv_moved hi hinv rfl rfl ?_ (by simp) (by simp [Pc.writes])
      rw [hrest, chunks, if_pos hmany]
      simp [St.rest]
    · rename_i hfew
      refine linesInv_moved hi hinv rfl rfl ?_ (by simp) (by simp [Pc.writes])
      rw [hrest, chunks, if_neg hfew]
      simp [St.rest]
  | writing i =>
    rw [record_thread (by simp [St.takes, hpc])]
    simp only [St.threadStep, hpc] at h
    split at h <;> cases h
    · rename_i b hb
      refine linesInv_moved hi hinv rfl rfl ?_ (by simp) (by simp [Pc.writes])
      rw [rest_writing hpc hb]
      simp [St.rest]
    · rename_i hend
      refine linesInv_moved hi hinv rfl rfl ?_ (by simp) (by simp [Pc.writes])
      simp [St.rest, hpc, List.drop_eq_nil_of_le (List.getElem?_eq_none_iff.mp hend)]
  | recycling =>
    rw [record_thread (by simp [St.takes, hpc])]
    simp only [St.threadStep, hpc] at h
    cases h
    rw [recycle_eq (hi.writes (by rw [hpc]; rfl))] at hinv ⊢
    exact linesInv_moved hi hinv rfl rfl (by simp [St.rest, hpc]) (by simp) fun _ => rfl

theorem linesInv_step (hi : LinesInv (s, log)) (h : step s a = some t) : LinesInv (t, log.record s a) := by
  have hinv := hi.toInv.step h
  unfold step at h
  rw [if_neg (by simp [show s.fault = none from hi.fault])] at h
  cases a with
  | start =>
    dsimp only at h
    split at h <;> cases h
    rename_i hpc
    have hrest : s.rest = [] := rest_of_not_writes (by rw [hpc]; rfl)
    exact linesInv_moved hi hinv rfl rfl (by rw [hrest]; rfl) (by simp) fun _ => hi.flushed (by rw [hpc]; rfl)
  | append logline =>
    cases h
    exact linesInv_append hi logline
  | stop =>
    cases h
    exact linesInv_moved hi hinv rfl rfl rfl hi.asleep hi.flushed
  | notify =>
    cases h
    refine linesInv_moved hi hinv rfl rfl (congrArg (s.output ++ ·) (rest_notify s)) (fun h => ?_) fun h => hi.flushed ?_
    · cases hpc : s.pc <;> simp [hpc, Pc.notify] at h
    · simpa using h
  | wake =>
    dsimp only at h
    split at h <;> cases h
    rename_i hpc
    exact linesInv_swap hi (by rw [hpc]; rfl) (by rw [hpc]; rfl)
  | thread => exact linesInv_threadStep hi h

theorem linesInv_initial : LinesInv ({}, Log.empty) :=
  ⟨inv_initial, ⟨[[]], rfl, rfl⟩, rfl, by simp, fun _ => rfl⟩

/-- **The lines in their order.** In every run the lines that fit are in the buffers, whole and in order, and those that
the log thread took are in the file in that order, but for what it says it dropped. -/
theorem inOrder_throughout (as : List Act) : Lts.Throughout logging InOrder ({}, Log.empty) as := by
  refine Lts.throughout_of_along (I := LinesInv) (fun x a y hi _ h => ?_) (fun x hi => ?_) linesInv_initial
    (Lts.along_true as _)
  · obtain ⟨hstep, hrecord⟩ := Lts.withHistory_some h
    have hnext := linesInv_step hi hstep
    rwa [← hrecord] at hnext
  · exact ⟨hi.lines, hi.written, fun h => ⟨hi.asleep h, hi.flushed (by rw [h]; rfl)⟩⟩

def Chunk.bytes : Chunk → List UInt8
  | .data bytes => bytes
  | .dropped _ => []

theorem flatMap_flatten {α β : Type*} (f : α → List β) (ls : List (List α)) :
    ls.flatten.flatMap f = (ls.map (List.flatMap f)).flatten := by
  rw [← List.flatMap_id, List.flatMap_assoc]
  rfl

theorem bytes_chunks {batch : List Buffer} (h : batch.length ≤ 25) :
    (chunks batch).flatMap Chunk.bytes = batch.flatMap (·.data) := by
  rw [chunks, if_neg (Nat.not_lt.mpr h), List.flatMap_map]
  rfl

theorem kept_of_few {x : St × Log} (h : InOrder x) (hfew : ∀ batch ∈ x.2.batches, batch.length ≤ 25) :
    (x.1.output ++ x.1.rest).flatMap Chunk.bytes ++ (x.1.buffers ++ x.1.currentBuffer.toList).flatMap (·.data) =
      (x.2.lines.filter Logline.fits).flatMap Subtype.val := by
  obtain ⟨groups, hlines, hbuffers⟩ := h.lines
  have htaken : (x.2.batches.flatMap chunks).flatMap Chunk.bytes = x.2.batches.flatten.flatMap (·.data) := by
    rw [List.flatMap_assoc, List.flatMap_congr fun batch hb => bytes_chunks (hfew batch hb)]
    rw [flatMap_flatten]
    rfl
  calc (x.1.output ++ x.1.rest).flatMap Chunk.bytes ++ (x.1.buffers ++ x.1.currentBuffer.toList).flatMap (·.data)
      = ((x.2.batches.flatten ++ x.1.buffers ++ x.1.currentBuffer.toList).map (·.data)).flatten := by
        rw [h.written, htaken, List.append_assoc]
        simp [List.flatMap]
    _ = (groups.map (List.flatMap Subtype.val)).flatten := by rw [hbuffers]
    _ = (x.2.lines.filter Logline.fits).flatMap Subtype.val := by
        rw [← hlines, flatMap_flatten]

end

/-- What is appended after the last round before `stop` is never written. -/
example : ((Lts.run step {} [.start, .append ⟨[0x61], by decide⟩, .stop, .thread]).map fun s => (s.pc, s.output)) =
    some (.done, []) := by decide +kernel

end ZkCppClient.Logging
