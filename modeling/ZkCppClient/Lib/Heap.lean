import Mathlib.Data.List.Nodup
import Mathlib.Data.List.Perm.Basic

/-!
# A heap and its owners

Objects are allocated at fresh addresses and freed. `h.Owned held` says that
the places that may free an object, listed in `held`, have each live object
just once: nothing is lost, and nothing is freed twice.
-/

structure Heap (α : Type*) where
  live : List (Nat × α)
  next : Nat
  fresh : ∀ x ∈ live, x.1 < next
  nodup : (live.map Prod.fst).Nodup

namespace Heap

variable {α : Type*}

def empty : Heap α := ⟨[], 0, fun _ (h : _ ∈ []) => (List.not_mem_nil h).elim, List.nodup_nil⟩

/-- The pointer that the next allocation returns. -/
def ptr (h : Heap α) (a : α) : Nat × α := (h.next, a)

def alloc (h : Heap α) (a : α) : Heap α where
  live := h.ptr a :: h.live
  next := h.next + 1
  fresh x hx := by
    rcases List.mem_cons.mp hx with rfl | hx
    · exact Nat.lt_succ_self _
    · exact Nat.lt_succ_of_lt (h.fresh x hx)
  nodup := by
    refine List.nodup_cons.mpr ⟨fun hmem => ?_, h.nodup⟩
    obtain ⟨x, hx, heq⟩ := List.mem_map.mp hmem
    exact Nat.ne_of_lt (h.fresh x hx) heq

def free [DecidableEq α] (h : Heap α) (x : Nat × α) : Heap α where
  live := h.live.erase x
  next := h.next
  fresh y hy := h.fresh y (List.mem_of_mem_erase hy)
  nodup := h.nodup.sublist (List.erase_sublist.map _)

def Owned (h : Heap α) (held : List (Nat × α)) : Prop := h.live.Perm held

section
variable {h : Heap α} {held held' : List (Nat × α)} {x : Nat × α}

theorem owned_empty : (empty : Heap α).Owned [] := List.Perm.refl _

theorem Owned.moved (ho : h.Owned held) (hp : held.Perm held') : h.Owned held' := ho.trans hp

theorem Owned.alloc (ho : h.Owned held) (a : α) : (h.alloc a).Owned (h.ptr a :: held) := ho.cons _

theorem Owned.live (ho : h.Owned held) (hx : x ∈ held) : x ∈ h.live := ho.mem_iff.mpr hx

theorem Owned.nodup (ho : h.Owned held) : held.Nodup := ho.nodup_iff.mp (List.Nodup.of_map _ h.nodup)

theorem Owned.live_eq_nil (ho : h.Owned held) : h.live = [] ↔ held = [] := by
  rw [← List.length_eq_zero_iff, ← List.length_eq_zero_iff, ho.length_eq]

theorem Owned.free [DecidableEq α] (ho : h.Owned (x :: held)) : (h.free x).Owned held := by
  have hp := ho.erase x
  rwa [List.erase_cons_head] at hp

end

theorem perm_eraseIdx {β : Type*} {owner : List β} {i : Nat} {b : β} (h : owner[i]? = some b) :
    owner.Perm (b :: owner.eraseIdx i) := by
  have hlt : i < owner.length := List.getElem?_eq_some_iff.mp h |>.1
  have hb : owner[i] = b := Option.some.inj (by rw [← h, List.getElem?_eq_getElem hlt])
  have hp := List.getElem_cons_eraseIdx_perm hlt
  rw [hb] at hp
  exact hp.symm

end Heap
