import Mathlib.Data.List.TakeWhile

/-!
# Bounded copies of C strings

Buffers are lists of bytes. `strncpy` and `strncmp` stop at the first zero byte,
so what they carry over and what they look at is the string in the buffer and
not the buffer.
-/

namespace CString

variable {β : Type*} [Zero β]

def ZeroTail (s : List β) : Prop := s.Pairwise fun a b => a = 0 → b = 0

theorem zeroTail_replicate (n : Nat) : ZeroTail (List.replicate n (0 : β)) :=
  List.pairwise_replicate.mpr (Or.inr fun _ => rfl)

variable [DecidableEq β]

instance (s : List β) : Decidable (ZeroTail s) := inferInstanceAs (Decidable (s.Pairwise _))

def written : Nat → List β → List β
  | 0, _ => []
  | n + 1, [] => List.replicate (n + 1) 0
  | n + 1, b :: src => if b = 0 then List.replicate (n + 1) 0 else b :: written n src

def strncpy (dst src : List β) (n : Nat) : List β := written n src ++ dst.drop n

def str (buf : List β) : List β := buf.takeWhile (· ≠ 0)

/-- A zeroed buffer that a string is written into, as far as it fits before a last zero. -/
def bounded (size : Nat) (src : List β) : List β :=
  src.take (size - 1) ++ List.replicate (size - (src.take (size - 1)).length) 0

/-- `strncmp` finds no difference. -/
def same : Nat → List β → List β → Bool
  | 0, _, _ => true
  | n + 1, a :: as, b :: bs => a == b && (a == 0 || same n as bs)
  | _ + 1, as, bs => as.isEmpty && bs.isEmpty

theorem length_written (n : Nat) (src : List β) : (written n src).length = n := by
  induction n generalizing src with
  | zero => rfl
  | succ n ih =>
    cases src with
    | nil => simp [written]
    | cons b src =>
      by_cases hb : b = 0
      · simp [written, hb]
      · simp [written, hb, ih]

theorem length_strncpy {dst : List β} {n : Nat} (h : dst.length = n) (src : List β) :
    (strncpy dst src n).length = n := by
  simp [strncpy, length_written, h]

theorem strncpy_full {dst : List β} {n : Nat} (h : dst.length = n) (src : List β) :
    strncpy dst src n = written n src := by
  simp [strncpy, ← h]

theorem zeroTail_written (n : Nat) (src : List β) : ZeroTail (written n src) := by
  induction n generalizing src with
  | zero => exact List.Pairwise.nil
  | succ n ih =>
    cases src with
    | nil => exact zeroTail_replicate _
    | cons b src =>
      by_cases hb : b = 0
      · simp only [written, hb, if_true]
        exact zeroTail_replicate _
      · simp only [written, hb, if_false]
        exact List.pairwise_cons.mpr ⟨fun _ _ h => absurd h hb, ih src⟩

theorem written_of_zeroTail {src : List β} (h : ZeroTail src) : written src.length src = src := by
  induction src with
  | nil => rfl
  | cons b src ih =>
    obtain ⟨hhead, htail⟩ := List.pairwise_cons.mp h
    by_cases hb : b = 0
    · have hzero : ∀ c ∈ src, c = 0 := fun c hc => hhead c hc hb
      simp only [written, hb, if_true, List.length_cons]
      rw [List.replicate_succ, ← List.eq_replicate_of_mem hzero]
    · simp only [written, hb, if_false, List.length_cons, ih htail]

theorem written_eq_iff {src : List β} {n : Nat} (h : src.length = n) : written n src = src ↔ ZeroTail src := by
  subst h
  refine ⟨fun heq => ?_, written_of_zeroTail⟩
  rw [← heq]
  exact zeroTail_written _ _

theorem same_written (src : List β) : same src.length (written src.length src) src = true := by
  induction src with
  | nil => rfl
  | cons b src ih =>
    by_cases hb : b = 0
    · simp [written, hb, same, List.replicate_succ]
    · simp [written, hb, same, ih]

/-! ## What is read back -/

theorem zero_not_mem_str (buf : List β) : (0 : β) ∉ str buf := by
  intro h
  have hne := List.mem_takeWhile_imp h
  simp at hne

theorem str_eq_self {src : List β} : str src = src ↔ 0 ∉ src := by
  constructor
  · intro h
    rw [← h]
    exact zero_not_mem_str src
  · intro h
    apply List.takeWhile_eq_self_iff.mpr
    intro b hb
    exact decide_eq_true fun hzero => h (hzero ▸ hb)

theorem str_bounded {size : Nat} {src : List β} (hsize : 0 < size) (h : 0 ∉ src) :
    str (bounded size src) = src.take (size - 1) := by
  have hzeros : size - (src.take (size - 1)).length = (size - (src.take (size - 1)).length - 1) + 1 := by
    rw [List.length_take]
    omega
  have hcopied : 0 ∉ src.take (size - 1) := fun hmem => h (List.mem_of_mem_take hmem)
  rw [str, bounded, hzeros, List.replicate_succ, List.takeWhile_append_of_pos]
  · simp
  · exact fun b hb => decide_eq_true fun hzero => hcopied (hzero ▸ hb)

theorem str_bounded_eq_iff {size : Nat} {src : List β} (hsize : 0 < size) (h : 0 ∉ src) :
    str (bounded size src) = src ↔ src.length < size := by
  rw [str_bounded hsize h]
  constructor
  · intro hwhole
    have hlen := congrArg List.length hwhole
    rw [List.length_take] at hlen
    omega
  · exact fun hlen => List.take_of_length_le (by omega)

end CString
